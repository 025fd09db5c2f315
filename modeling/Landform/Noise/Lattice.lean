import Landform.Noise.Scalar

/-!
# Lattice hashing

Every integer point of the plane or of space has a pseudo-random value that depends on a seed. The
coordinates and the seed are combined into one integer, of which the low 31 bits are scrambled by a
cubic polynomial; the value is one minus a fraction of `2 ^ 30`. Since each step keeps only the low
31 bits of its result, integers of any size and 32-bit integers that wrap give the same value.
-/

namespace Landform.Noise

-- Powers are those of the core library, whatever other instances are around.
attribute [local instance (5000)] instPowNat

/-- The multipliers of the coordinates and of the seed. -/
def factorX : Int := 1619

def factorY : Int := 31337

def factorZ : Int := 52591

def factorSeed : Int := 1013

/-- The low 31 bits of an integer. -/
def low31 (n : Int) : Nat :=
  (n % 2 ^ (31 : Nat)).toNat

/-- The scrambled low 31 bits of an integer. -/
def scramble (n : Int) : Nat :=
  let m := low31 n
  let m := (m >>> 13) ^^^ m
  (m * (m * m * 60493 + 19990303) + 1376312589) % 2 ^ (31 : Nat)

/-- The integer that stands for a point of the plane under a seed. -/
def key2 (x y seed : Int) : Int :=
  factorX * x + factorY * y + factorSeed * seed

/-- The integer that stands for a point of space under a seed. -/
def key3 (x y z seed : Int) : Int :=
  factorX * x + factorY * y + factorZ * z + factorSeed * seed

/-- One minus a fraction of `2 ^ 30`. -/
@[specialize] def fraction {α : Type} [Scalar α] (n : Nat) : α :=
  Scalar.ofInt 1 - Scalar.ofInt n / Scalar.ofInt 1073741824

/-- The value of an integer point of the plane. -/
@[specialize] def hash2 {α : Type} [Scalar α] (x y seed : Int) : α :=
  fraction (scramble (key2 x y seed))

/-- The value of an integer point of space. -/
@[specialize] def hash3 {α : Type} [Scalar α] (x y z seed : Int) : α :=
  fraction (scramble (key3 x y z seed))

end Landform.Noise
