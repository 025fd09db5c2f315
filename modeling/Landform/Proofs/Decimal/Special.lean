import Landform.Decimal.Binary64
import Mathlib

/-!
# Signs and special doubles

Negation flips the sign of a double and nothing else, so that two negations cancel. A double is
known by its bits: there are two infinities, and one value that is no number.

1. `unpack_neg`, `float_neg_neg`: signs.
2. `eq_of_infinite`, `eq_of_notANumber`: doubles that are not finite.
-/

namespace Landform.Decimal

open Float.Model

/-! ## 1. Signs -/

/-- The parts of any bits survive packing; the bits that are no number become the standard ones. -/
theorem unpack_pack_unpack (b : BitVec Format.binary64.numBits) :
    UnpackedFloat.unpack Format.binary64 (UnpackedFloat.pack _ (UnpackedFloat.unpack _ b)) =
      UnpackedFloat.unpack _ b := by
  rw [UnpackedFloat.pack_unpack]
  split
  · next nan =>
    obtain ⟨exponent, mantissa⟩ := of_decide_eq_true nan
    rw [UnpackedFloat.unpack_packedNaN, UnpackedFloat.unpack]
    simp only [exponent, mantissa, if_true, if_false]
  · rfl

/-- The bits with the other sign have the negated parts. -/
theorem unpack_flipped (b : BitVec Format.binary64.numBits) :
    UnpackedFloat.unpack Format.binary64 (UnpackedFloat.packComponents _
        (-UnpackedFloat.Sign.ofBitVec (UnpackedFloat.unpackSign b))
        (UnpackedFloat.unpackExponent b) (UnpackedFloat.unpackMantissa b)) =
      (UnpackedFloat.unpack _ b).neg := by
  unfold UnpackedFloat.unpack
  simp only [UnpackedFloat.unpackExponent_packComponents,
    UnpackedFloat.unpackMantissa_packComponents, UnpackedFloat.unpackSign_packComponents,
    UnpackedFloat.Sign.ofBitVec_toBitVec]
  split
  · split <;> rfl
  · split
    · split <;> rfl
    · rfl

theorem unpack_pack (u : UnpackedFloat) : (Float.Model.pack u).unpack =
    UnpackedFloat.unpack Format.binary64 (UnpackedFloat.pack _ u) :=
  rfl

theorem unpack_neg (m : Float.Model) : (Float.Model.neg m).unpack = m.unpack.neg := by
  unfold Float.Model.neg
  rw [unpack_pack, Float.Model.unpack, ← unpack_flipped, unpack_pack_unpack]

theorem unpackedFloat_neg_neg (u : UnpackedFloat) : u.neg.neg = u := by
  have signs (s : UnpackedFloat.Sign) : - -s = s := by cases s <;> rfl
  cases u <;> simp [UnpackedFloat.neg, signs]

theorem pack_unpack (m : Float.Model) : Float.Model.pack m.unpack = m := by
  obtain ⟨bits, valid⟩ := m
  have same := UnpackedFloat.pack_unpack_of_valid valid
  simp only [Float.Model.pack, Float.Model.unpack, same]

/-- Two negations cancel. -/
theorem float_neg_neg (x : Float) : - -x = x := by
  show Float.ofModel (Float.Model.pack (Float.Model.neg x.toModel).unpack.neg) = x
  rw [unpack_neg, unpackedFloat_neg_neg, pack_unpack]

/-! ## 2. Doubles that are not finite -/

/-- A double is known by its bits. -/
theorem eq_of_toBits {x y : Float} (same : x.toBits = y.toBits) : x = y := by
  obtain ⟨⟨bits, valid⟩⟩ := x
  obtain ⟨⟨bits', valid'⟩⟩ := y
  cases same
  rfl

theorem toNat_unpackExponent (b : BitVec Format.binary64.numBits) :
    (UnpackedFloat.unpackExponent b).toNat = b.toNat / 2 ^ 52 % 2048 := by
  simp [UnpackedFloat.unpackExponent, Nat.shiftRight_eq_div_pow]

theorem toNat_unpackMantissa (b : BitVec Format.binary64.numBits) :
    (UnpackedFloat.unpackMantissa b).toNat = b.toNat % 2 ^ 52 := by
  simp [UnpackedFloat.unpackMantissa]

theorem form_infinite {x : Float} {negative : Bool} (infinite : form x = .infinite negative) :
    x.toBits.toNat = 2047 * 2 ^ 52 + if negative then 2 ^ 63 else 0 := by
  unfold form at infinite
  have bound := x.toBits.toNat_lt
  generalize x.toBits.toNat = bits at infinite bound ⊢
  simp only [] at infinite
  split at infinite
  · next exponent =>
    split at infinite
    · next fraction =>
      cases infinite
      simp only [beq_iff_eq] at exponent fraction ⊢
      split <;> omega
    · cases infinite
  · split at infinite <;> cases infinite

theorem form_notANumber {x : Float} (none : form x = .notANumber) :
    x.toBits.toNat / 2 ^ 52 % 2048 = 2047 ∧ x.toBits.toNat % 2 ^ 52 ≠ 0 := by
  unfold form at none
  generalize x.toBits.toNat = bits at none ⊢
  simp only [] at none
  split at none
  · next exponent =>
    split at none
    · cases none
    · next fraction => exact ⟨beq_iff_eq.mp exponent, fun zero => fraction (beq_iff_eq.mpr zero)⟩
  · split at none <;> cases none

/-- There are two infinities. -/
theorem eq_of_infinite {x : Float} {negative : Bool} (infinite : form x = .infinite negative) :
    x = if negative then -infinity else infinity := by
  have bits := form_infinite infinite
  refine eq_of_toBits (UInt64.toNat_inj.mp ?_)
  rw [bits]
  cases negative <;> decide +kernel

/-- There is one value that is no number: the quotient of zeros. -/
theorem eq_of_notANumber {x : Float} (none : form x = .notANumber) : x = 0 / 0 := by
  obtain ⟨exponent, fraction⟩ := form_notANumber none
  -- the bits of a double that is no number are always the standard ones
  have zeros : (0 / 0 : Float).toBits = (Float.Model.pack .notANumber).toBits := by decide +kernel
  refine eq_of_toBits (UInt64.toBitVec_inj.mp ?_)
  rw [zeros]
  refine x.toModel.valid.eq_packedNaN (BitVec.eq_of_toNat_eq ?_) fun zero => fraction ?_
  · exact (toNat_unpackExponent _).trans exponent
  · exact (toNat_unpackMantissa _).symm.trans (congrArg BitVec.toNat zero)

end Landform.Decimal
