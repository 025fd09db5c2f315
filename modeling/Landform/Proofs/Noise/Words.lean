import Landform.Noise.Lattice
import Landform.Proofs.Decimal.Exact
import Mathlib

/-!
# The lattice hash on 32-bit words

The hash of an integer point takes its key and its polynomial over all integers and drops what is
above 31 bits at the start and at the end. A computation on signed 32-bit words that wraps after
every product and every sum drops it at each step. Both leave the same 31 bits, and the quotient
and the difference that turn them into a double are exact.

1. `wordKey2`, `wordKey3`, `wordScramble`: the hash on words, step by step.
2. `wordScramble_ofInt`: both ways leave the same 31 bits.
3. `hash_eq_words`: the values of all integer points under all seeds.
-/

namespace Landform.Noise

/-! ## 1. The hash on words -/

/-- The key of a point of the plane; each product and each sum wraps. -/
def wordKey2 (x y seed : Int) : Int32 :=
  .ofInt (factorX * x) + .ofInt (factorY * y) + .ofInt (factorSeed * seed)

/-- The key of a point of space; each product and each sum wraps. -/
def wordKey3 (x y z seed : Int) : Int32 :=
  .ofInt (factorX * x) + .ofInt (factorY * y) + .ofInt (factorZ * z) + .ofInt (factorSeed * seed)

/-- The scrambled low 31 bits of a word; each product and each sum wraps. -/
def wordScramble (n : Int32) : Int32 :=
  let m := n &&& 0x7fffffff
  let m := (m >>> 13) ^^^ m
  (m * (m * m * 60493 + 19990303) + 1376312589) &&& 0x7fffffff

/-- One minus the fraction of `2 ^ 30` that a word is. -/
def wordFraction (n : Int32) : Rat :=
  1 - n.toInt / 2 ^ 30

/-! ## 2. The bits that stay -/

theorem wordKey2_eq (x y seed : Int) : wordKey2 x y seed = .ofInt (key2 x y seed) := by
  simp only [wordKey2, key2, Int32.ofInt_add]

theorem wordKey3_eq (x y z seed : Int) : wordKey3 x y z seed = .ofInt (key3 x y z seed) := by
  simp only [wordKey3, key3, Int32.ofInt_add]

theorem low31_lt (n : Int) : low31 n < 2 ^ 31 := by
  unfold low31
  omega

theorem scramble_lt (n : Int) : scramble n < 2 ^ 31 :=
  Nat.mod_lt _ (by decide)

/-- The mask keeps the low 31 bits of an integer, whatever wrapped before. -/
theorem ofInt_mask (n : Int) : Int32.ofInt n &&& 0x7fffffff = .ofNat (low31 n) := by
  refine Int32.toBitVec_inj.mp (BitVec.eq_of_toNat_eq ?_)
  have mask : (0x7fffffff : Int32).toBitVec.toNat = 2 ^ 31 - 1 := rfl
  rw [Int32.toBitVec_and, BitVec.toNat_and, mask, Nat.and_two_pow_sub_one_eq_mod,
    Int32.toBitVec_ofInt, BitVec.toNat_ofInt, Int32.toBitVec_ofNat', BitVec.toNat_ofNat]
  unfold low31
  omega

/-- A word of 31 bits has no sign, so that shifting it is shifting a natural number. -/
theorem ofNat_fold {m : Nat} (low : m < 2 ^ 31) :
    (Int32.ofNat m >>> 13) ^^^ .ofNat m = .ofNat ((m >>> 13) ^^^ m) := by
  refine Int32.toBitVec_inj.mp (BitVec.eq_of_toNat_eq ?_)
  have places : ((13 : Int32).toBitVec.smod 32).toNat = 13 := rfl
  have positive : (BitVec.ofNat 32 m).msb = false := by
    rw [BitVec.msb_eq_false_iff_two_mul_lt, BitVec.toNat_ofNat]; omega
  have whole : (BitVec.ofNat 32 m).toNat = m := by rw [BitVec.toNat_ofNat]; omega
  have small : (m >>> 13) ^^^ m < 2 ^ 32 :=
    Nat.xor_lt_two_pow (by rw [Nat.shiftRight_eq_div_pow]; omega) (by omega)
  rw [Int32.toBitVec_xor, BitVec.toNat_xor, Int32.toBitVec_shiftRight, Int32.toBitVec_ofNat',
    Int32.toBitVec_ofNat', BitVec.sshiftRight', places,
    BitVec.toNat_sshiftRight_of_msb_false positive, whole, BitVec.toNat_ofNat,
    Nat.mod_eq_of_lt small]

theorem low31_natCast (n : Nat) : low31 n = n % 2 ^ 31 := by
  unfold low31
  omega

/-- Wrapping at each step leaves the same 31 bits as wrapping nowhere. -/
theorem wordScramble_ofInt (n : Int) : wordScramble (.ofInt n) = .ofNat (scramble n) := by
  have polynomial (m : Nat) :
      Int32.ofNat m * (.ofNat m * .ofNat m * 60493 + 19990303) + 1376312589 =
        .ofInt (m * (m * m * 60493 + 19990303) + 1376312589 : Nat) := by
    rw [Int32.ofInt_eq_ofNat, Int32.ofNat_add, Int32.ofNat_mul, Int32.ofNat_add, Int32.ofNat_mul,
      Int32.ofNat_mul]
    rfl
  rw [wordScramble, ofInt_mask, ofNat_fold (low31_lt n), polynomial, ofInt_mask, low31_natCast]
  rfl

/-! ## 3. The values -/

theorem value?_fraction {n : Nat} (low : n < 2 ^ 31) :
    Decimal.value? (fraction n : Float) = some (1 - n / 2 ^ 30 : Rat) := by
  have one : Decimal.value? (Float.ofInt 1) = some (1 : Rat) := by
    simpa using Decimal.value?_ofInt (n := 1) (by decide)
  have whole : Decimal.value? (Float.ofInt n) = some (n : Rat) := by
    simpa using Decimal.value?_ofInt (n := n) (by omega)
  have unit : Decimal.value? (Float.ofInt 1073741824) = some (2 ^ 30 : Rat) := by
    rw [Decimal.value?_ofInt (by decide)]
    norm_num
  have quotient : Decimal.Normal ((n : Rat) / 2 ^ 30) := by
    have scaled := Decimal.normal_scaled (n := n) (e := -30) (by omega) (by decide) (by decide)
    rwa [zpow_neg, ← div_eq_mul_inv] at scaled
  have difference : Decimal.Normal (1 - (n : Rat) / 2 ^ 30) := by
    have scaled := Decimal.normal_scaled (n := 2 ^ 30 - n) (e := -30) (by omega) (by decide)
      (by decide)
    rw [zpow_neg, ← div_eq_mul_inv] at scaled
    convert scaled using 1
    push_cast
    ring
  exact Decimal.value?_sub one (Decimal.value?_div whole unit (by norm_num) quotient) difference

/-- The hash of an integer point, whatever the size of the coordinates and of the seed, is a double
that stands for exactly what the words give. -/
theorem hash_eq_words (x y z seed : Int) :
    Decimal.value? (hash2 x y seed : Float) =
        some (wordFraction (wordScramble (wordKey2 x y seed))) ∧
      Decimal.value? (hash3 x y z seed : Float) =
        some (wordFraction (wordScramble (wordKey3 x y z seed))) := by
  have read (n : Int) : wordFraction (wordScramble (.ofInt n)) = 1 - scramble n / 2 ^ 30 := by
    rw [wordFraction, wordScramble_ofInt, Int32.toInt_ofNat_of_lt (scramble_lt n), Int.cast_natCast]
  rw [wordKey2_eq, wordKey3_eq, read, read]
  exact ⟨value?_fraction (scramble_lt _), value?_fraction (scramble_lt _)⟩

end Landform.Noise
