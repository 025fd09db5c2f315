import Landform.Proofs.Noise.Interpolation

/-!
# The values of the lattice hash

The hash of an integer point is one minus a fraction of `2 ^ 30` whose numerator is an odd number of
31 bits. A double holds it exactly; it lies strictly between minus one and one, and since an odd
number is not `2 ^ 30`, it is not zero. Of the key only the low 31 bits count, and the key is linear
in the coordinates and in the seed, so that the hash has the period `2 ^ 31` in each of them.

1. `latticeValue_fraction`: the value of a scrambled key.
2. `scramble_add`, `key3_add`: the period.
3. `hash_range`: the values of all integer points under all seeds.
-/

namespace Landform.Noise

open Set

/-! ## 1. Odd fractions -/

/-- A double that is exactly one minus an odd fraction of `2 ^ 30` below two, hence strictly between
minus one and one, and not zero. -/
structure LatticeValue (hash : Float) : Prop where
  exact : ∃ n : Int, Odd n ∧ 0 < n ∧ n < 2 ^ 31 ∧
    Decimal.value? hash = some (1 - n / 2 ^ 30 : Rat)
  inside : ∃ q ∈ Ioo (-1 : Rat) 1, q ≠ 0 ∧ Decimal.value? hash = some q

/-- The fraction would have to be one, of which the numerator is even. -/
theorem fraction_ne_zero (n : Int) : (fraction (scramble n) : Rat) ≠ 0 := by
  intro zero
  rw [fraction_eq, sub_eq_zero, eq_div_iff (by norm_num), one_mul] at zero
  have even : scramble n = 2 ^ 30 := by exact_mod_cast zero.symm
  exact absurd (even ▸ odd_scramble n) (by decide)

theorem latticeValue_fraction (n : Int) : LatticeValue (fraction (scramble n)) := by
  have value := value?_fraction (scramble_lt n)
  constructor
  · refine ⟨scramble n, (odd_scramble n).natCast, ?_, ?_, ?_⟩
    · exact_mod_cast (odd_scramble n).pos
    · exact_mod_cast scramble_lt n
    · rw [value, Int.cast_natCast]
  · rw [← fraction_eq] at value
    exact ⟨_, fraction_mem n, fraction_ne_zero n, value⟩

/-! ## 2. The period -/

theorem scramble_add (n k : Int) : scramble (n + 2 ^ 31 * k) = scramble n := by
  have low : low31 (n + 2 ^ 31 * k) = low31 n := by
    unfold low31
    omega
  rw [scramble, low, scramble]

theorem key2_add (x y seed a b d : Int) :
    key2 (x + 2 ^ 31 * a) (y + 2 ^ 31 * b) (seed + 2 ^ 31 * d) =
      key2 x y seed + 2 ^ 31 * key2 a b d := by
  unfold key2
  ring

theorem key3_add (x y z seed a b c d : Int) :
    key3 (x + 2 ^ 31 * a) (y + 2 ^ 31 * b) (z + 2 ^ 31 * c) (seed + 2 ^ 31 * d) =
      key3 x y z seed + 2 ^ 31 * key3 a b c d := by
  unfold key3
  ring

/-! ## 3. All points -/

/-- The hash of every integer point, in the plane as in space, is an odd fraction. It stays the same
under shifts of the coordinates and of the seed by multiples of `2 ^ 31`. -/
theorem hash_range (x y z seed : Int) :
    LatticeValue (hash2 x y seed) ∧ LatticeValue (hash3 x y z seed) ∧
      ∀ a b c d : Int,
        (hash2 (x + 2 ^ 31 * a) (y + 2 ^ 31 * b) (seed + 2 ^ 31 * d) : Float) = hash2 x y seed ∧
          (hash3 (x + 2 ^ 31 * a) (y + 2 ^ 31 * b) (z + 2 ^ 31 * c) (seed + 2 ^ 31 * d) : Float) =
            hash3 x y z seed := by
  refine ⟨latticeValue_fraction _, latticeValue_fraction _, fun a b c d => ⟨?_, ?_⟩⟩
  · rw [hash2, key2_add, scramble_add, hash2]
  · rw [hash3, key3_add, scramble_add, hash3]

end Landform.Noise
