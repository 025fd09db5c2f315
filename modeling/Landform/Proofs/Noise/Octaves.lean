import Landform.Noise.Fractal
import Landform.Proofs.Noise.Interpolation

/-!
# Fractal noise as a sum of octaves

The loop over the octaves carries the seed, the frequency and the amplitude of the next octave and
the sum so far. Over the rational numbers its result is the sum of the octaves in closed form: the
octave `i` is value noise at the spread point times the `i`-th power of the lacunarity, under a seed
that is larger by `i`, and it counts with the `i`-th power of the persistence. Since value noise
stays within minus one and one, so does every octave, and the sum is bounded by the powers.

1. `addOctaves_eq`: the loop, from any octave on.
2. `sum_eq`: the loop as a whole.
3. `weighted_le`, `weighted_nonneg`: what bounds a weighted sum.
4. `fractal_octaves`: fractal noise in the plane and in space.
-/

namespace Landform.Noise

open Finset

/-! ## 1. The loop -/

section Loop

variable (lacunarity persist : Rat) (field : Rat → Int → Rat)

/-- The octaves added by the loop, whatever it has reached: it goes on from the given seed,
frequency and amplitude. -/
theorem addOctaves_eq (count : Nat) (seed : Int) (frequency amplitude total : Rat) :
    addOctaves lacunarity persist field count seed frequency amplitude total =
      total + amplitude *
        ∑ i ∈ range count, persist ^ i * field (frequency * lacunarity ^ i) (seed + i) := by
  induction count generalizing seed frequency amplitude total with
  | zero => simp [addOctaves]
  | succ count ih =>
    -- The first octave comes apart from the sum; of the others each is the next one of a loop that
    -- starts later.
    have later : ∀ i ∈ range count,
        persist ^ (i + 1) * field (frequency * lacunarity ^ (i + 1)) (seed + (i + 1 : Nat)) =
          persist * (persist ^ i * field (frequency * lacunarity * lacunarity ^ i)
            (seed + 1 + i)) := by
      intro i _
      rw [pow_succ' lacunarity, ← mul_assoc frequency, Nat.cast_succ, add_comm (i : Int) 1,
        ← add_assoc seed]
      ring
    rw [addOctaves, ih, sum_range_succ', sum_congr rfl later, ← mul_sum]
    simp only [pow_zero, one_mul, mul_one, Nat.cast_zero, add_zero]
    ring

end Loop

/-! ## 2. The whole sum -/

theorem Settings.sum_eq (s : Settings Rat) (seed : Int) (field : Rat → Int → Rat) :
    s.sum seed field = s.offset + s.scale *
      ∑ i ∈ range s.octaves, s.persist ^ i * field (s.lacunarity ^ i) (seed + i) := by
  have start : s.sum seed field =
      s.offset + addOctaves s.lacunarity s.persist field s.octaves seed 1 1 0 * s.scale := rfl
  rw [start, addOctaves_eq, zero_add, one_mul, mul_comm _ s.scale]
  simp only [one_mul]

/-! ## 3. Weighted sums -/

section Weighted

variable {persist : Rat} {octave : Nat → Rat} (count : Nat)

theorem weighted_le (bounded : ∀ i, |octave i| ≤ 1) :
    |∑ i ∈ range count, persist ^ i * octave i| ≤ ∑ i ∈ range count, |persist| ^ i := by
  refine (abs_sum_le_sum_abs _ _).trans (sum_le_sum fun i _ => ?_)
  calc |persist ^ i * octave i| = |persist| ^ i * |octave i| := by rw [abs_mul, abs_pow]
    _ ≤ |persist| ^ i * 1 := mul_le_mul_of_nonneg_left (bounded i) (pow_nonneg (abs_nonneg _) i)
    _ = |persist| ^ i := mul_one _

theorem weighted_nonneg (nonneg : 0 ≤ persist) (positive : ∀ i, 0 ≤ octave i) :
    0 ≤ ∑ i ∈ range count, persist ^ i * octave i :=
  sum_nonneg fun i _ => mul_nonneg (pow_nonneg nonneg i) (positive i)

end Weighted

/-! ## 4. Fractal noise -/

theorem abs_eq (v : Rat) : Scalar.abs v = |v| := by
  show (if v < 0 then -v else v) = |v|
  split
  case isTrue negative => rw [abs_of_neg negative]
  case isFalse positive => rw [abs_of_nonneg (not_lt.mp positive)]

/-- A number, or its absolute value if the flags ask for it. -/
def Flags.folded (flags : Flags) (v : Rat) : Rat :=
  if flags.hasAbsvalue then |v| else v

theorem Flags.fold_eq (flags : Flags) (v : Rat) : flags.fold v = flags.folded v := by
  rw [Flags.fold, abs_eq, Flags.folded]

theorem Flags.abs_folded (flags : Flags) (v : Rat) : |flags.folded v| = |v| := by
  unfold Flags.folded
  split
  · exact abs_abs v
  · rfl

/-- The octave `i` of noise in the plane: it is eased under the defaults and under the easing
flag. -/
def Settings.octave2 (s : Settings Rat) (x y : Rat) (seedOffset : Int) (i : Nat) : Rat :=
  s.flags.folded (gradient2 (x / s.spreadX * s.lacunarity ^ i) (y / s.spreadY * s.lacunarity ^ i)
    (seedOffset + s.seed + i) (s.flags.hasDefaults || s.flags.hasEased))

/-- The octave `i` of noise in space: it is eased under the easing flag alone. -/
def Settings3.octave3 (s : Settings3 Rat) (x y z : Rat) (seedOffset : Int) (i : Nat) : Rat :=
  s.flags.folded (gradient3 (x / s.spreadX * s.lacunarity ^ i) (y / s.spreadY * s.lacunarity ^ i)
    (z / s.spreadZ * s.lacunarity ^ i) (seedOffset + s.seed + i) s.flags.hasEased)

theorem Settings.abs_octave2_le (s : Settings Rat) (x y : Rat) (seedOffset : Int) (i : Nat) :
    |s.octave2 x y seedOffset i| ≤ 1 := by
  rw [octave2, Flags.abs_folded, abs_le]
  exact Set.Ioo_subset_Icc_self ((gradient2_interpolates _ _).inside _ _)

theorem Settings3.abs_octave3_le (s : Settings3 Rat) (x y z : Rat) (seedOffset : Int) (i : Nat) :
    |s.octave3 x y z seedOffset i| ≤ 1 := by
  rw [octave3, Flags.abs_folded, abs_le]
  exact Set.Ioo_subset_Icc_self ((gradient3_interpolates _ _).inside _ _ _)

/-- A number is the shifted and scaled sum of some octaves, of which each counts with a power of the
persistence. It is off the offset by at most the scaled sum of these powers, and it is not below the
offset if the octaves are absolute values and neither the scale nor the persistence is negative. -/
structure Settings.Sums (s : Settings Rat) (octave : Nat → Rat) (value : Rat) : Prop where
  sum : value = s.offset + s.scale * ∑ i ∈ range s.octaves, s.persist ^ i * octave i
  bounded : |value - s.offset| ≤ |s.scale| * ∑ i ∈ range s.octaves, |s.persist| ^ i
  above : s.flags.hasAbsvalue = true → 0 ≤ s.scale → 0 ≤ s.persist → s.offset ≤ value

/-- Octaves that are folded under the flags and stay within one make a sum with its bounds. -/
theorem Settings.sums_of_octaves (s : Settings Rat) {octave : Nat → Rat}
    (bounded : ∀ i, |octave i| ≤ 1) (folded : s.flags.hasAbsvalue = true → ∀ i, 0 ≤ octave i) :
    s.Sums octave
      (s.offset + s.scale * ∑ i ∈ range s.octaves, s.persist ^ i * octave i) where
  sum := rfl
  bounded := by
    rw [add_sub_cancel_left, abs_mul]
    exact mul_le_mul_of_nonneg_left (weighted_le _ bounded) (abs_nonneg _)
  above := fun absolute scale persist =>
    le_add_of_nonneg_right (mul_nonneg scale (weighted_nonneg _ persist (folded absolute)))

theorem Flags.folded_nonneg {flags : Flags} (absolute : flags.hasAbsvalue = true) (v : Rat) :
    0 ≤ flags.folded v := by
  rw [Flags.folded, if_pos absolute]
  exact abs_nonneg v

theorem Settings.fractal2_eq (s : Settings Rat) (x y : Rat) (seedOffset : Int) :
    s.fractal2 x y seedOffset = s.offset + s.scale *
      ∑ i ∈ range s.octaves, s.persist ^ i * s.octave2 x y seedOffset i := by
  simp only [fractal2, sum_eq, Flags.fold_eq, octave2, Flags.eases2]

theorem Settings3.fractal3_eq (s : Settings3 Rat) (x y z : Rat) (seedOffset : Int) :
    s.fractal3 x y z seedOffset = s.offset + s.scale *
      ∑ i ∈ range s.octaves, s.persist ^ i * s.octave3 x y z seedOffset i := by
  simp only [fractal3, Settings.sum_eq, Flags.fold_eq, octave3, Flags.eases3]

/-- Fractal noise is the sum of its octaves and bounded by it, in the plane as in space, for all
settings, at all rational points and under all shifts of the seed. Settings have spreads other than
zero, which the division does not need here. -/
theorem fractal_octaves (s : Settings Rat) (s3 : Settings3 Rat) (x y z : Rat) (seedOffset : Int) :
    s.Sums (s.octave2 x y seedOffset) (s.fractal2 x y seedOffset) ∧
      s3.toSettings.Sums (s3.octave3 x y z seedOffset) (s3.fractal3 x y z seedOffset) := by
  rw [Settings.fractal2_eq, Settings3.fractal3_eq]
  exact ⟨s.sums_of_octaves (s.abs_octave2_le x y seedOffset)
      fun absolute _ => Flags.folded_nonneg absolute _,
    s3.sums_of_octaves (s3.abs_octave3_le x y z seedOffset)
      fun absolute _ => Flags.folded_nonneg absolute _⟩

end Landform.Noise
